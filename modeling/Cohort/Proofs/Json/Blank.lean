import Cohort.Json.Tree
import Cohort.Text.Blank
import Mathlib

namespace Cohort.Json

theorem isBare_of_isBlank {c : Char} (blank : Text.isBlank c = true) : isBare c = false := by
  refine Bool.eq_false_iff.mpr fun bare => ?_
  simp only [Text.isBlank, Bool.or_eq_true, Bool.and_eq_true, decide_eq_true_eq,
    beq_iff_eq] at blank
  simp only [isBare, Char.isAlphanum, Char.isAlpha, Char.isUpper, Char.isLower, Char.isDigit,
    Bool.or_eq_true, Bool.and_eq_true, decide_eq_true_eq, beq_iff_eq, ge_iff_le,
    UInt32.le_iff_toNat_le] at bare
  have value : c.val.toNat = c.toNat := rfl
  rcases bare with ((((⟨low, high⟩ | ⟨low, high⟩) | ⟨low, high⟩) | rfl) | rfl) | rfl
  · have least : 'A'.val.toNat = 65 := rfl
    have greatest : 'Z'.val.toNat = 90 := rfl
    omega
  · have least : 'a'.val.toNat = 97 := rfl
    have greatest : 'z'.val.toNat = 122 := rfl
    omega
  · have least : '0'.val.toNat = 48 := rfl
    have greatest : '9'.val.toNat = 57 := rfl
    omega
  all_goals simp at blank

/-- A blank character between tokens is skipped or refused. -/
theorem Scanner.begin_blank {c : Char} (blank : Text.isBlank c = true) :
    start.begin c = some start ∨ start.begin c = none := by
  have noQuote : c ≠ '"' := by
    rintro rfl
    cases blank
  have noMark : Token.mark? c = none := by
    unfold Token.mark?
    split
    case h_7 => rfl
    all_goals cases blank
  rw [begin, if_neg noQuote, isBare_of_isBlank blank, noMark]
  split
  · exact .inl rfl
  · exact .inr rfl

theorem Scanner.foldlM_blank {letters : List Char} (blank : ∀ c ∈ letters, Text.isBlank c = true) :
    letters.foldlM step start = some start ∨
      letters.foldlM step start = none := by
  induction letters with
  | nil => exact .inl rfl
  | cons c letters induction =>
      obtain ⟨first, others⟩ := List.forall_mem_cons.mp blank
      rw [List.foldlM_cons]
      rcases begin_blank first with skipped | refused
      · have taken : start.step c = some start := skipped
        rw [taken]
        exact induction others
      · have taken : start.step c = none := refused
        rw [taken]
        exact .inr rfl

theorem Tree.allBlank_eq_false {document : String} {tree : Tree}
    (said : parse? document = some tree) : Text.allBlank document = false := by
  refine Bool.eq_false_iff.mpr fun blank => ?_
  have letters : ∀ c ∈ document.toList, Text.isBlank c = true := List.all_eq_true.mp blank
  unfold Tree.parse? Token.scan? at said
  rcases Scanner.foldlM_blank letters with skipped | refused
  · rw [skipped] at said
    cases said
  · rw [refused] at said
    cases said

end Cohort.Json
