import Cohort.Proofs.Attributes
import Cohort.Proofs.Drafts

/-!
# Keys of attributes

A rule names an attribute by its key behind a prefix.  The name is lower-cased as a
whole and the prefix is cut off afterwards, which makes a difference to one sigma at
most: one that has no cased letter of the key on either side ends a word behind the
prefix, and not alone.
-/

namespace Cohort

open Json Text

namespace Text

/-- A text is cut at a capital sigma with nothing but passed-over characters before it
and no cased letter coming next. -/
structure LoneSigma (letters front back : List Char) : Prop where
  cut : letters = front ++ 'Σ' :: back
  passed : ∀ c ∈ front, isCaseIgnorable c = true
  last : startsCased back = false

theorem foldl_endsCased_of_passed {letters : List Char}
    (passed : ∀ c ∈ letters, isCaseIgnorable c = true) (before : Bool) :
    letters.foldl endsCased before = before := by
  induction letters with
  | nil => rfl
  | cons c letters induction =>
      obtain ⟨first, others⟩ := List.forall_mem_cons.mp passed
      rw [List.foldl_cons, endsCased, if_pos first, induction others]

/-- What stands before a character that is not passed over is of no account behind
it. -/
theorem foldl_endsCased_congr {letters : List Char} {c : Char} (listed : c ∈ letters)
    (stops : isCaseIgnorable c = false) (before other : Bool) :
    letters.foldl endsCased before = letters.foldl endsCased other := by
  induction letters generalizing before other with
  | nil => cases listed
  | cons first letters induction =>
      rw [List.foldl_cons, List.foldl_cons]
      rcases List.mem_cons.mp listed with rfl | later
      · simp only [endsCased, stops, Bool.false_eq_true, if_false]
      · exact induction later _ _

/-- A text is lower-cased behind a cased letter as it is alone exactly if it has no lone
sigma. -/
theorem lowerFrom_true_eq_iff {letters : List Char} :
    lowerFrom true letters = lowerLetters letters ↔
      ∀ front back, ¬LoneSigma letters front back := by
  rw [lowerLetters, lowerFrom_eq_lowerBetween, lowerFrom_eq_lowerBetween, lowerBetween_eq_iff]
  simp only [List.append_nil]
  constructor
  · intro same front back lone
    obtain ⟨cut, passed, last⟩ := lone
    have ends := same front back cut
    rw [foldl_endsCased_of_passed passed, foldl_endsCased_of_passed passed, last] at ends
    cases ends
  · intro none front back cut
    by_cases passed : ∀ c ∈ front, isCaseIgnorable c = true
    · cases last : startsCased back with
      | true => rw [Bool.not_true, Bool.and_false, Bool.and_false]
      | false => exact (none front back ⟨cut, passed, last⟩).elim
    · simp only [not_forall] at passed
      obtain ⟨c, listed, stops⟩ := passed
      rw [foldl_endsCased_congr listed (Bool.eq_false_iff.mpr stops)]

theorem LoneSigma.lowerFrom_eq {letters front back : List Char}
    (lone : LoneSigma letters front back) (before : Bool) :
    lowerFrom before letters =
      lowerLetters front ++ (if before then 'ς' else 'σ') :: lowerFrom true back := by
  obtain ⟨rfl, passed, last⟩ := lone
  have noSigma : 'Σ' ∉ front := fun listed => absurd (passed _ listed) (by decide +kernel)
  have cased : endsCased before 'Σ' = true := by
    cases before <;> decide +kernel
  have kept : lowerBetween before ('Σ' :: back) front = lowerLetters front := by
    rw [lowerLetters, lowerFrom_eq_lowerBetween]
    exact lowerBetween_congr noSigma before false ('Σ' :: back) []
  have sigma : lowerAt before 'Σ' back = [if before then 'ς' else 'σ'] := by
    rw [lowerAt, if_pos rfl, last]
    cases before <;> rfl
  rw [lowerFrom_eq_lowerBetween, lowerBetween_append, List.append_nil, kept,
    foldl_endsCased_of_passed passed, lowerBetween, List.append_nil, sigma, cased,
    ← lowerFrom_eq_lowerBetween]
  rfl

end Text

/-- The key that a rule on an attribute looks up: its name is lower-cased behind the
prefix. -/
def attributeKey (key : String) : String :=
  String.ofList (lowerFrom true key.toList)

theorem Field.ofLower_start (letters : List Char) :
    ofLower (String.ofList (customAttributeStart ++ letters)) =
      .customAttribute (String.ofList letters) := by
  unfold ofLower
  rw [String.toList_ofList, if_pos (List.isPrefixOf_iff_prefix.mpr (List.prefix_append _ _)),
    List.drop_left]

theorem Field.ofName_attribute (key : String) :
    ofName ("customattribute." ++ key) = .customAttribute (attributeKey key) := by
  have start : lowerBetween false key.toList customAttributeStart = customAttributeStart := by
    have alone : lowerBetween false [] customAttributeStart = customAttributeStart := by
      decide +kernel
    exact (lowerBetween_congr (by decide) false false key.toList []).trans alone
  have cased : customAttributeStart.foldl endsCased false = true := by decide +kernel
  have letters : lowerLetters (customAttributeStart ++ key.toList) =
      customAttributeStart ++ lowerFrom true key.toList := by
    rw [lowerLetters_append, start, cased, ← lowerFrom_eq_lowerBetween]
  rw [ofName, lower, String.toList_append, attributeKey, ← ofLower_start, ← letters]
  rfl

/-- The contact has a text under the key that equals the value up to case. -/
def Contact.Finds (contact : Contact) (key value : String) : Prop :=
  ∃ attributes text, contact.attributes = .ok attributes ∧ attributes.lookup key = some text ∧
    lower text = lower value

theorem Contact.finds_iff {contact : Contact} {key value : String} :
    contact.Finds key value ↔
      ∃ text, contact.attribute? key = some text ∧ lower text = lower value := by
  unfold Finds attribute?
  cases contact.attributes with
  | error problem => simp
  | ok attributes => simp

def Rule.onAttribute (key value : String) : Rule :=
  { field := some ("customattribute." ++ key), comparison := some "equals", value := some value }

theorem Contact.finds_iff_of_single {contact : Contact} {key text : String}
    (attributes : contact.attributes = .ok [(key, text)]) (name value : String) :
    contact.Finds name value ↔ name = key ∧ lower text = lower value := by
  rw [finds_iff, attribute?, attributes]
  by_cases same : name = key
  · subst same
    simp
  · simp [List.lookup_cons, beq_false_of_ne same, same]

theorem Rule.answer_onAttribute (key value : String) (subject : Subject) :
    (onAttribute key value).answer subject = true ↔
      subject.contact.Finds (attributeKey key) value := by
  have named : subject.namedLower (lower ("customattribute." ++ key)) =
      .ofOptional (subject.contact.attribute? (attributeKey key)) := by
    rw [← Subject.resolve_ofLower, ← Field.ofName, Field.ofName_attribute, Subject.resolve]
  rw [Contact.finds_iff]
  simp only [onAttribute, answer, Option.getD_some, named, Comparison.ofName_equals]
  cases subject.contact.attribute? (attributeKey key) with
  | none => simp [Resolved.ofOptional]
  | some text => simp [Resolved.ofOptional, Comparison.equals_holds_iff]

def attributeDocument (key value : String) : String :=
  (Value.object [(key, .text value)]).compact

theorem parse?_attributeDocument (key value : String) :
    Value.parse? (attributeDocument key value) = some (.object [(key, .text value)]) := by
  have legible : (Value.object [(key, .text value)]).Legible := ⟨trivial, trivial⟩
  have said := Value.parse?_compact legible
  exact Value.parse?_eq_object_iff.mpr ⟨_, ⟨_, said, Nat.le_add_left 1 126, rfl⟩, rfl⟩

theorem Contact.attributes_attributeDocument {contact : Contact} {key value : String}
    (stored : contact.customAttributes = some (attributeDocument key value)) :
    contact.attributes = .ok [(key, value)] :=
  attributes_of_single stored (parse?_attributeDocument key value) (.text value)

namespace CriteriaDraft

/-- A draft that asks for an attribute finds the contacts that have it, under the key in
lower case, with a text equal to the value up to case.  If the key has a lone sigma,
the key that is looked up has `ς` in its place where the key alone has `σ`; then there
are contacts for which this makes a difference. -/
theorem whereAttribute_finds_attribute (connective : Connective) (key value : String) :
    let criteria := (({ connective } : CriteriaDraft).whereAttribute key value).criteria
    ((∀ front back, ¬LoneSigma key.toList front back) →
      ∀ subject, criteria.isMatch subject = true ↔ subject.contact.Finds (lower key) value) ∧
    ∀ front back, LoneSigma key.toList front back →
      let around (sigma : Char) :=
        String.ofList (lowerLetters front ++ sigma :: lowerFrom true back)
      lower key = around 'σ' ∧
      (∀ subject, criteria.isMatch subject = true ↔ subject.contact.Finds (around 'ς') value) ∧
      ∃ document, ∀ subject, subject.contact.customAttributes = some document →
        ¬(criteria.isMatch subject = true ↔ subject.contact.Finds (lower key) value) := by
  intro criteria
  have found (subject : Subject) :
      criteria.isMatch subject = true ↔ subject.contact.Finds (attributeKey key) value := by
    rw [← Rule.answer_onAttribute, Rule.onAttribute, ← isMatch_rule connective]
    rfl
  constructor
  · intro none subject
    rw [found, attributeKey, lowerFrom_true_eq_iff.mpr none, lower]
  · intro front back lone around
    have low : lower key = around 'σ' := congrArg String.ofList (lone.lowerFrom_eq false)
    have looked : attributeKey key = around 'ς' := congrArg String.ofList (lone.lowerFrom_eq true)
    refine ⟨low, fun subject => looked ▸ found subject, attributeDocument (lower key) value, ?_⟩
    intro subject stored agrees
    have finds := Contact.finds_iff_of_single (Contact.attributes_attributeDocument stored)
    have same : attributeKey key = lower key := by
      rw [found, finds, finds] at agrees
      exact (agrees.mpr ⟨rfl, rfl⟩).1
    rw [looked, low, String.ofList_inj, List.append_cancel_left_eq] at same
    exact absurd (List.cons.inj same).1 (by decide)

theorem whereAttribute_finds_schema :
    let person (document : String) : Subject :=
      { contact := { id := 1, owner := "ana", customAttributes := some document }, tags := none }
    let criteria (key : String) := (({} : CriteriaDraft).whereAttribute key "GOLD").criteria
    (∀ front back, ¬LoneSigma "ΣChéma".toList front back) ∧
      (criteria "ΣChéma").isMatch (person (attributeDocument "σchéma" "Gold")) = true ∧
      LoneSigma ":Σ5".toList [':'] ['5'] ∧
      (criteria ":Σ5").isMatch (person (attributeDocument ":ς5" "Gold")) = true := by
  intro person criteria
  have plain : ∀ front back, ¬LoneSigma "ΣChéma".toList front back :=
    lowerFrom_true_eq_iff.mp (by decide +kernel)
  have colon : isCaseIgnorable ':' = true := by decide +kernel
  have lone : LoneSigma ":Σ5".toList [':'] ['5'] :=
    ⟨rfl, List.forall_mem_singleton.mpr colon, by decide +kernel⟩
  have sameText : lower "Gold" = lower "GOLD" := by decide +kernel
  have found (key low : String) (same : low = key) :
      (person (attributeDocument key "Gold")).contact.Finds low "GOLD" :=
    (Contact.finds_iff_of_single (Contact.attributes_attributeDocument rfl) low "GOLD").mpr
      ⟨same, sameText⟩
  obtain ⟨ofPlain, _⟩ := whereAttribute_finds_attribute .every "ΣChéma" "GOLD"
  obtain ⟨_, ofLone⟩ := whereAttribute_finds_attribute .every ":Σ5" "GOLD"
  obtain ⟨_, finds, _⟩ := ofLone _ _ lone
  refine ⟨plain, (ofPlain plain _).mpr (found _ _ (by decide +kernel)), lone, ?_⟩
  exact (finds _).mpr (found _ _ (by decide +kernel))

/-- The contact has the attribute under the key in lower case, and is not found. -/
theorem whereAttribute_misses_sigma :
    let person : Subject :=
      { contact := { id := 1, owner := "ana", customAttributes := some "\x7b\"σ\":\"gold\"\x7d" }
        tags := none }
    ¬((({} : CriteriaDraft).whereAttribute "Σ" "gold").criteria.isMatch person = true ↔
      ∃ attributes text, person.contact.attributes = .ok attributes ∧
        attributes.lookup (lower "Σ") = some text ∧ lower text = lower "gold") := by
  intro person agrees
  have means : Value.parse? "\x7b\"σ\":\"gold\"\x7d" = some (.object [("σ", .text "gold")]) := by
    cbv
  have attributes : person.contact.attributes = .ok [("σ", "gold")] :=
    Contact.attributes_of_single rfl means (.text "gold")
  have missed :
      (({} : CriteriaDraft).whereAttribute "Σ" "gold").criteria.isMatch person = false := by
    decide +kernel
  have held : [("σ", "gold")].lookup (lower "Σ") = some "gold" := by decide +kernel
  rw [agrees.mpr ⟨_, "gold", attributes, held, rfl⟩] at missed
  cases missed

end CriteriaDraft

end Cohort
