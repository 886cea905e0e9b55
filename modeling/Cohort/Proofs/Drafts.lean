import Cohort.Proofs.Alternatives
import Cohort.Proofs.Criteria.RoundTrip
import Cohort.Proofs.Tagging
import Cohort.Proofs.Text.Numerals

/-!
# Lists in drafts

A draft writes a list of texts or of tags as one text with commas, and nothing marks a
comma or a blank that belongs to a text.  Numerals have neither, so a list of tags means
what it says.
-/

namespace Cohort

open Text

theorem Criteria.isMatch_single (rule : Rule) (connectiveName : Option String) (subject : Subject) :
    ({ rules := [rule], connectiveName } : Criteria).isMatch subject = rule.answer subject := by
  cases joined : Connective.ofName connectiveName with
  | every => rw [isMatch_of_every joined, List.all_cons, List.all_nil, Bool.and_true]
  | some =>
      rw [isMatch_of_some joined (List.cons_ne_nil _ _), List.any_cons, List.any_nil, Bool.or_false]

namespace CriteriaDraft

theorem isMatch_rule (connective : Connective) (field comparison value : String)
    (subject : Subject) :
    (({ connective } : CriteriaDraft).rule field comparison value).criteria.isMatch subject =
      ({ field := some field, comparison := some comparison, value := some value } : Rule).answer
        subject :=
  Criteria.isMatch_single _ _ subject

theorem parse_rule (connective : Connective) (field comparison value : String) :
    let criteria := (({ connective } : CriteriaDraft).rule field comparison value).criteria
    Criteria.parse criteria.document = .ok criteria := by
  intro criteria
  rw [Criteria.parse_eq_ofValue (Criteria.parse?_document criteria)]
  rfl

/-- Values that can stand in a list as they are. -/
structure Listable (values : List String) : Prop where
  some : values ≠ []
  plain : ∀ value ∈ values, ',' ∉ value.toList ∧ trim value.toList = value.toList

theorem splitAt_commaList {values : List String} (some : values ≠ []) :
    splitAt ',' (commaList values).toList = values.flatMap fun value =>
      splitAt ',' value.toList := by
  have mapped : values.map String.toList ≠ [] := by
    rw [Ne, List.map_eq_nil_iff]
    exact some
  rw [commaList, String.toList_ofList, splitAt_joinWith mapped, List.flatMap_map]

/-- A draft asks for one of the pieces that the values give when they are cut at commas
and trimmed. -/
theorem isMatch_whereIn_iff {values : List String} (some : values ≠ []) {connective : Connective}
    {field text : String} {subject : Subject}
    (resolved : subject.resolve (.ofName field) = .scalar text) :
    (({ connective } : CriteriaDraft).whereIn field values).criteria.isMatch subject = true ↔
      ∃ value ∈ values, ∃ piece ∈ splitAt ',' value.toList,
        lower text = lower (String.ofList (trim piece)) := by
  have named : subject.namedLower (lower field) = .scalar text :=
    (subject.resolve_ofLower (lower field)).symm.trans resolved
  have answer :
      ({ field, comparison := "in", value := commaList values } : Rule).answer subject =
        Comparison.isIn.holds text (commaList values) := by
    rw [← Comparison.ofName_in]
    simp only [Rule.answer, Option.getD_some, named]
  rw [whereIn, isMatch_rule, answer, Comparison.isIn_holds_iff, splitAt_commaList some]
  simp only [List.mem_map, exists_exists_and_eq_and, List.mem_flatMap, lower, String.ofList_inj,
    String.toList_ofList]
  constructor
  · rintro ⟨piece, ⟨value, listed, cut⟩, same⟩
    exact ⟨value, listed, piece, cut, same⟩
  · rintro ⟨value, listed, piece, cut, same⟩
    exact ⟨piece, ⟨value, listed, cut⟩, same⟩

theorem Listable.isMatch_iff {values : List String} (listable : Listable values)
    {connective : Connective} {field text : String} {subject : Subject}
    (resolved : subject.resolve (.ofName field) = .scalar text) :
    (({ connective } : CriteriaDraft).whereIn field values).criteria.isMatch subject = true ↔
      ∃ value ∈ values, lower text = lower value := by
  rw [isMatch_whereIn_iff listable.some resolved]
  apply exists_congr
  intro value
  apply and_congr_right
  intro listed
  obtain ⟨noComma, trimmed⟩ := listable.plain value listed
  simp [splitAt_of_not_mem noComma, trimmed]

/-- A piece that is equal to a value up to case has no comma and no blanks at its ends,
so neither has the value. -/
theorem not_mem_and_trimmed_of_lower_eq {value : String} {letters piece : List Char}
    (cut : piece ∈ splitAt ',' letters)
    (same : lower value = lower (String.ofList (trim piece))) :
    ',' ∉ value.toList ∧ trim value.toList = value.toList := by
  have low : lowerLetters value.toList = lowerLetters (trim piece) := by
    rw [lower, lower, String.ofList_inj, String.toList_ofList] at same
    exact same
  constructor
  · intro comma
    have inPiece : ',' ∈ lowerLetters (trim piece) := by
      rw [← low]
      exact (mem_lowerFrom_iff isBreak_comma).mpr comma
    apply not_mem_of_mem_splitAt cut
    exact mem_of_mem_trim ((mem_lowerFrom_iff isBreak_comma).mp inPiece)
  · apply trim_eq_self_of_trim_lowerLetters
    rw [low, trim_lowerLetters, trim_trim]

theorem listable_empty_text : Listable [""] := by
  refine ⟨List.cons_ne_nil _ _, ?_⟩
  rw [List.forall_mem_singleton]
  exact ⟨List.not_mem_nil, rfl⟩

/-- A list that is not listable is wrong about a text: a value that is not plain is not
found, and the empty list has the empty text. -/
theorem exists_text_of_not_listable {values : List String} (unlistable : ¬Listable values) :
    ∃ text, ∀ (connective : Connective) (field : String) (subject : Subject),
      subject.resolve (.ofName field) = .scalar text →
        ¬((({ connective } : CriteriaDraft).whereIn field values).criteria.isMatch subject = true ↔
          ∃ value ∈ values, lower text = lower value) := by
  by_cases none : values = []
  · subst none
    refine ⟨"", fun connective field subject resolved agrees => ?_⟩
    have found : ∃ value ∈ [""], lower "" = lower value := ⟨"", List.mem_singleton_self "", rfl⟩
    obtain ⟨value, listed, _⟩ := agrees.mp ((listable_empty_text.isMatch_iff resolved).mpr found)
    exact List.not_mem_nil listed
  · have unfit : ¬∀ value ∈ values, ',' ∉ value.toList ∧ trim value.toList = value.toList :=
      fun plain => unlistable ⟨none, plain⟩
    simp only [not_forall] at unfit
    obtain ⟨value, listed, unfit⟩ := unfit
    refine ⟨value, fun connective field subject resolved agrees => unfit ?_⟩
    have found := agrees.mpr ⟨value, listed, rfl⟩
    obtain ⟨_, _, piece, cut, same⟩ := (isMatch_whereIn_iff none resolved).mp found
    exact not_mem_and_trimmed_of_lower_eq cut same

/-- A draft that asks for one of some values asks for one of the pieces that they give
when they are cut at commas and trimmed, where no values are as good as the empty one.
This is one of the values for every text exactly if the values are listable. -/
theorem whereIn_asks_for_pieces (connective : Connective) (field : String) (values : List String) :
    let criteria := (({ connective } : CriteriaDraft).whereIn field values).criteria
    let IsValue (text : String) := ∃ value ∈ values, lower text = lower value
    (values = [] → criteria = (({ connective } : CriteriaDraft).whereIn field [""]).criteria) ∧
    (values ≠ [] → ∀ subject text, subject.resolve (.ofName field) = .scalar text →
      (criteria.isMatch subject = true ↔
        ∃ value ∈ values, ∃ piece ∈ splitAt ',' value.toList,
          lower text = lower (String.ofList (trim piece)))) ∧
    (Listable values → ∀ subject text, subject.resolve (.ofName field) = .scalar text →
      (criteria.isMatch subject = true ↔ IsValue text)) ∧
    (¬Listable values → ∃ text, ∀ subject, subject.resolve (.ofName field) = .scalar text →
      ¬(criteria.isMatch subject = true ↔ IsValue text)) := by
  intro criteria IsValue
  refine ⟨?_, ?_, ?_, ?_⟩
  · intro none
    simp only [criteria, none]
    rfl
  · intro some subject text resolved
    exact isMatch_whereIn_iff some resolved
  · intro listable subject text resolved
    exact listable.isMatch_iff resolved
  · intro unlistable
    obtain ⟨text, wrong⟩ := exists_text_of_not_listable unlistable
    exact ⟨text, wrong connective field⟩

theorem whereIn_asks_for_cities :
    let person (city : String) : Subject :=
      { contact := { id := 1, owner := "ana", city := city }, tags := none }
    let criteria (values : List String) := (({} : CriteriaDraft).whereIn "city" values).criteria
    (criteria []).isMatch (person "") = true ∧
      (criteria [" Lyon", "Paris,Nice"]).isMatch (person "nice") = true ∧
      Listable ["Lyon", "ΟΔΟΣ"] ∧ (criteria ["Lyon", "ΟΔΟΣ"]).isMatch (person "οδος") = true ∧
      ¬Listable [" Lyon", "Paris,Nice"] ∧
      ∃ city, ¬((criteria [" Lyon", "Paris,Nice"]).isMatch (person city) = true ↔
        ∃ value ∈ [" Lyon", "Paris,Nice"], lower city = lower value) := by
  intro person criteria
  have isCity : Field.ofName "city" = .city := by decide +kernel
  have resolved (city : String) : (person city).resolve (.ofName "city") = .scalar city := by
    rw [isCity]
    rfl
  have plain : Listable ["Lyon", "ΟΔΟΣ"] := ⟨List.cons_ne_nil _ _, by decide⟩
  have notPlain : ¬Listable [" Lyon", "Paris,Nice"] := fun listable =>
    absurd listable.plain (by decide)
  obtain ⟨same, _⟩ := whereIn_asks_for_pieces .every "city" []
  obtain ⟨_, _, single, _⟩ := whereIn_asks_for_pieces .every "city" [""]
  obtain ⟨_, _, values, _⟩ := whereIn_asks_for_pieces .every "city" ["Lyon", "ΟΔΟΣ"]
  obtain ⟨_, pieces, _, wrong⟩ := whereIn_asks_for_pieces .every "city" [" Lyon", "Paris,Nice"]
  refine ⟨?_, ?_, plain, ?_, notPlain, ?_⟩
  · have empty := (single listable_empty_text _ _ (resolved "")).mpr ⟨"", by decide, rfl⟩
    rw [← same rfl] at empty
    exact empty
  · exact (pieces (List.cons_ne_nil _ _) _ _ (resolved "nice")).mpr
      ⟨"Paris,Nice", by decide, "Nice".toList, by decide, by decide +kernel⟩
  · exact (values plain _ _ (resolved "οδος")).mpr ⟨"ΟΔΟΣ", by decide, by decide +kernel⟩
  · obtain ⟨city, wrong⟩ := wrong notPlain
    exact ⟨city, wrong _ (resolved city)⟩

/-- The city is a value of the list, and the contact is not found. -/
theorem whereIn_misses_comma :
    let person : Subject :=
      { contact := { id := 1, owner := "ana", city := some "Lyon, France" }, tags := none }
    let values := ["Lyon, France"]
    person.resolve (.ofName "city") = .scalar "Lyon, France" ∧
      ¬((({} : CriteriaDraft).whereIn "city" values).criteria.isMatch person = true ↔
        ∃ value ∈ values, lower "Lyon, France" = lower value) := by
  intro person values
  have resolved : person.resolve (.ofName "city") = .scalar "Lyon, France" := by decide +kernel
  have missed : (({} : CriteriaDraft).whereIn "city" values).criteria.isMatch person = false := by
    decide +kernel
  refine ⟨resolved, fun agrees => ?_⟩
  rw [agrees.mpr ⟨_, List.mem_cons_self, rfl⟩] at missed
  cases missed

theorem isBlank_of_mem_intLetters {value : Int} {c : Char} (listed : c ∈ intLetters value) :
    isBlank c = false := by
  rcases isDigit_or_minus_of_mem_intLetters listed with digit | rfl
  · exact isBlank_of_isDigit digit
  · rfl

theorem comma_not_mem_intLetters (value : Int) : ',' ∉ intLetters value := by
  intro listed
  rcases isDigit_or_minus_of_mem_intLetters listed with digit | minus
  · cases digit
  · cases minus

theorem filterMap_splitAt_commaList {tags : List Int}
    (bounded : ∀ tag ∈ tags, minSigned ≤ tag ∧ tag ≤ maxSigned) :
    ((splitAt ',' (commaList (tags.map ofInt)).toList).filterMap fun item =>
      signedNumeral? (trim item)) = tags := by
  cases tags with
  | nil => rfl
  | cons first others =>
      have each : ∀ tag ∈ first :: others,
          ((splitAt ',' (ofInt tag).toList).filterMap fun item => signedNumeral? (trim item)) =
            [tag] := by
        intro tag listed
        obtain ⟨least, most⟩ := bounded tag listed
        have read : signedNumeral? (trim (intLetters tag)) = some tag := by
          rw [trim_eq_self fun c => isBlank_of_mem_intLetters, signedNumeral?_intLetters least most]
        rw [ofInt, String.toList_ofList, splitAt_of_not_mem (comma_not_mem_intLetters tag)]
        exact List.filterMap_cons_some read
      have some : (first :: others).map ofInt ≠ [] := List.cons_ne_nil _ _
      rw [splitAt_commaList some, List.flatMap_map, List.filterMap_flatMap, List.flatMap_congr each,
        List.flatMap_singleton']

theorem mem_tagsOfText_commaList {tags : List Int}
    (bounded : ∀ tag ∈ tags, minSigned ≤ tag ∧ tag ≤ maxSigned) {tag : Int} :
    tag ∈ tagsOfText (commaList (tags.map ofInt)) ↔ tag ∈ tags ∧ 0 < tag := by
  rw [tagsOfText, filterMap_splitAt_commaList bounded, IdSet.mem_ofList, List.mem_filter,
    decide_eq_true_eq]

/-- A draft that asks for one of some tags finds the contacts that have a positive tag
of the list, and its criteria are read back from their document. -/
theorem whereTagged_finds_tagged (connective : Connective) {tags : List Int}
    (bounded : ∀ tag ∈ tags, minSigned ≤ tag ∧ tag ≤ maxSigned) :
    let criteria := (({ connective } : CriteriaDraft).whereTagged tags).criteria
    Criteria.parse criteria.document = .ok criteria ∧
      ∀ subject, criteria.isMatch subject = true ↔
        ∃ held, subject.tags = some held ∧ ∃ tag ∈ tags, 0 < tag ∧ tag ∈ held := by
  intro criteria
  refine ⟨parse_rule connective "tag" "in" _, fun subject => ?_⟩
  have named : subject.namedLower (lower "tag") = .tags subject.tags := by
    have low : lower "tag" = "tag" := by decide +kernel
    rw [low]
    rfl
  have asksForTags : (lower "in" == "in") = true := by decide +kernel
  change (({ connective } : CriteriaDraft).rule "tag" "in" _).criteria.isMatch subject = true ↔ _
  rw [isMatch_rule, Rule.answer, Option.getD_some, named]
  cases subject.tags with
  | none => simp
  | some held =>
      simp only [Option.getD_some, asksForTags, Bool.true_or, Bool.true_and]
      rw [← IdSet.meets_tagsOfText, IdSet.meets_iff]
      simp only [mem_tagsOfText_commaList bounded]
      constructor
      · rintro ⟨tag, has, listed, positive⟩
        exact ⟨held, rfl, tag, listed, positive, has⟩
      · rintro ⟨_, ⟨rfl⟩, tag, listed, positive, has⟩
        exact ⟨tag, has, listed, positive⟩

theorem whereTagged_finds_twenty :
    let tags : List Int := [maxSigned, 20, -3, 0, 20, minSigned]
    let criteria := (({} : CriteriaDraft).askForSome.whereTagged tags).criteria
    let person (held : Option IdSet) : Subject :=
      { contact := { id := 1, owner := "ana" }, tags := held }
    (∀ tag ∈ tags, minSigned ≤ tag ∧ tag ≤ maxSigned) ∧
      Criteria.parse criteria.document = .ok criteria ∧
      criteria.isMatch (person (some (.ofList [7, 20]))) = true ∧
      ¬criteria.isMatch (person (some (.ofList [-3, 0, 7]))) = true ∧
      ¬criteria.isMatch (person none) = true := by
  intro tags criteria person
  have bounded : ∀ tag ∈ tags, minSigned ≤ tag ∧ tag ≤ maxSigned := by decide
  obtain ⟨readBack, found⟩ := whereTagged_finds_tagged .some bounded
  refine ⟨bounded, readBack, ?_, ?_, ?_⟩
  · exact (found _).mpr ⟨_, rfl, 20, by decide, by decide, by decide⟩
  · intro accepted
    obtain ⟨held, has, tag, listed, positive, member⟩ := (found _).mp accepted
    cases has
    revert tag
    decide
  · intro accepted
    obtain ⟨held, has, _⟩ := (found _).mp accepted
    cases has

end CriteriaDraft

end Cohort
