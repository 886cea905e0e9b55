import Cohort.Proofs.Text.Items
import Cohort.Rule.Comparison

/-!
# Comparisons with alternatives

`in` compares a text with a list of alternatives.  The list is lower-cased as a whole
before it is cut and trimmed, and yet a text is in the list exactly if it equals some
alternative as it was given.
-/

namespace Cohort

open Text

/-- One list is another with its pieces in another order, with a piece repeated, with
blanks around a piece, or any of this undone, any number of times. -/
inductive Relisted : List (List Char) → List (List Char) → Prop where
  | reordered {pieces others : List (List Char)} : pieces.Perm others → Relisted pieces others
  | repeated {piece : List Char} {pieces : List (List Char)} :
      piece ∈ pieces → Relisted pieces (piece :: pieces)
  | padded {before piece after : List Char} {pieces : List (List Char)} :
      (∀ c ∈ before, isBlank c = true) → (∀ c ∈ after, isBlank c = true) →
      Relisted (piece :: pieces) ((before ++ piece ++ after) :: pieces)
  | undone {pieces others : List (List Char)} : Relisted pieces others → Relisted others pieces
  | trans {pieces between others : List (List Char)} :
      Relisted pieces between → Relisted between others → Relisted pieces others

namespace Relisted

variable {pieces others : List (List Char)}

theorem mem_trimmed_iff (relisted : Relisted pieces others) (item : List Char) :
    item ∈ pieces.map trim ↔ item ∈ others.map trim := by
  induction relisted with
  | reordered permutation => exact (permutation.map trim).mem_iff
  | repeated listed =>
      rw [List.map_cons, List.mem_cons]
      constructor
      · exact Or.inr
      · rintro (rfl | member)
        · exact List.mem_map_of_mem listed
        · exact member
  | padded blankBefore blankAfter =>
      rw [List.map_cons, List.map_cons, trim_append_blanks _ blankBefore blankAfter]
  | undone _ induction => exact induction.symm
  | trans _ _ first second => exact first.trans second

theorem eq_nil_iff (relisted : Relisted pieces others) : pieces = [] ↔ others = [] := by
  induction relisted with
  | reordered permutation =>
      rw [← List.length_eq_zero_iff, permutation.length_eq, List.length_eq_zero_iff]
  | repeated listed => simp [List.ne_nil_of_mem listed]
  | padded _ _ => simp
  | undone _ induction => exact induction.symm
  | trans _ _ first second => exact first.trans second

theorem absent_iff {separator : Char} (solid : isBlank separator = false)
    (relisted : Relisted pieces others) :
    (∀ piece ∈ pieces, separator ∉ piece) ↔ ∀ piece ∈ others, separator ∉ piece := by
  have notIn {blanks : List Char} (blank : ∀ c ∈ blanks, isBlank c = true) :
      separator ∉ blanks := by
    intro member
    rw [blank separator member] at solid
    cases solid
  induction relisted with
  | reordered permutation => simp only [permutation.mem_iff]
  | repeated listed =>
      rw [List.forall_mem_cons]
      exact ⟨fun all => ⟨all _ listed, all⟩, And.right⟩
  | padded blankBefore blankAfter =>
      simp only [List.forall_mem_cons, List.mem_append, notIn blankBefore, notIn blankAfter,
        false_or, or_false]
  | undone _ induction => exact induction.symm
  | trans _ _ first second => exact first.trans second

theorem splitAt_joinWith {letters : List Char}
    (relisted : Relisted (splitAt ',' letters) pieces) :
    splitAt ',' (joinWith ',' pieces) = pieces := by
  apply splitAt_joinWith_of_not_mem
  · exact mt relisted.eq_nil_iff.mpr (splitAt_ne_nil ',' letters)
  · exact (relisted.absent_iff rfl).mp fun piece => not_mem_of_mem_splitAt

end Relisted

theorem Operand.items_ofText (text : String) :
    (ofText text).items = ((splitAt ',' text.toList).map trim).map lowerLetters := by
  rw [ofText, splitAt_lowerLetters isBreak_comma, List.map_map, List.map_map]
  exact List.map_congr_left fun piece _ => trim_lowerLetters piece

namespace Comparison

theorem ofName_in : ofName "in" = .isIn := by
  decide +kernel

theorem ofName_notin : ofName "notin" = .isNotIn := by
  decide +kernel

theorem ofName_equals : ofName "equals" = .equals := by
  decide +kernel

theorem equals_holds_iff (text wanted : String) :
    equals.holds text wanted = true ↔ lower text = lower wanted := by
  rw [lower, lower, String.ofList_inj]
  exact beq_iff_eq

theorem isIn_holds_iff (text list : String) :
    isIn.holds text list = true ↔
      ∃ item ∈ (splitAt ',' list.toList).map trim,
        lowerLetters text.toList = lowerLetters item := by
  rw [holds, holdsFor, List.contains_iff_mem, Operand.items_ofText, List.mem_map]
  simp only [eq_comm]

/-- A text is in a list exactly if it equals one of the alternatives, and `notin` is the
opposite.  Both stay as they are if the alternatives are put into another order,
repeated or padded with blanks. -/
theorem in_iff_some_equals (text list : String) :
    ((ofName "in").holds text list = true ↔
      ∃ piece ∈ splitAt ',' list.toList,
        (ofName "equals").holds text (String.ofList (trim piece)) = true) ∧
    (ofName "notin").holds text list = !(ofName "in").holds text list ∧
    ∀ pieces, Relisted (splitAt ',' list.toList) pieces →
      (ofName "in").holds text (String.ofList (joinWith ',' pieces)) =
          (ofName "in").holds text list ∧
        (ofName "notin").holds text (String.ofList (joinWith ',' pieces)) =
          (ofName "notin").holds text list := by
  rw [ofName_in, ofName_notin, ofName_equals]
  have opposite (other : String) : isNotIn.holds text other = !isIn.holds text other := rfl
  refine ⟨?_, opposite list, ?_⟩
  · simp only [isIn_holds_iff, equals_holds_iff, List.mem_map, exists_exists_and_eq_and, lower,
      String.ofList_inj, String.toList_ofList]
  · intro pieces relisted
    have same : isIn.holds text (String.ofList (joinWith ',' pieces)) = isIn.holds text list := by
      rw [Bool.eq_iff_iff, isIn_holds_iff, isIn_holds_iff, String.toList_ofList,
        relisted.splitAt_joinWith]
      simp only [relisted.mem_trimmed_iff]
    exact ⟨same, by rw [opposite, opposite, same]⟩

/-- The street stands twice in the second list, once between blanks. -/
theorem streets_relisted :
    let list := "fr,ΟΔΟΣ"
    let pieces := [" ΟΔΟΣ\t".toList, "fr".toList, "ΟΔΟΣ".toList]
    Relisted (splitAt ',' list.toList) pieces ∧
      (ofName "in").holds "οδος" (String.ofList (joinWith ',' pieces)) =
        (ofName "in").holds "οδος" list ∧
      (ofName "notin").holds "οδος" (String.ofList (joinWith ',' pieces)) =
        (ofName "notin").holds "οδος" list ∧
      (ofName "in").holds "οδος" list = true := by
  intro list pieces
  have cut : splitAt ',' list.toList = ["fr".toList, "ΟΔΟΣ".toList] := by decide
  have again : Relisted (splitAt ',' list.toList) ["ΟΔΟΣ".toList, "fr".toList, "ΟΔΟΣ".toList] := by
    rw [cut]
    exact .repeated (by decide)
  have padded : Relisted ["ΟΔΟΣ".toList, "fr".toList, "ΟΔΟΣ".toList] pieces :=
    @Relisted.padded [' '] _ ['\t'] _ (List.forall_mem_singleton.mpr rfl)
      (List.forall_mem_singleton.mpr rfl)
  have relisted := again.trans padded
  obtain ⟨isIn, isNotIn⟩ := (in_iff_some_equals "οδος" list).2.2 pieces relisted
  exact ⟨relisted, isIn, isNotIn, by decide +kernel⟩

end Comparison

end Cohort
